import RenderStudioKit.Lib.Runs
import RenderStudioKit.Model.SyncthingEvents

/-!
# Which events of Syncthing are handled

Polls fail or find nothing, and events are logged in between. The events that are handled are a
contiguous part of the log all the same, as long as Syncthing still has what it is asked for.
-/

namespace RenderStudioKit.Proofs

namespace PolledEvents

open Cursor

/-- Syncthing has all events it is asked for. -/
def Buffered (_ : EventFeed) : FeedEvent → Prop
  | .answer dropped => dropped = 0
  | _ => True

/-- The events after `first` up to the cursor. -/
def span (f : EventFeed) : List LoggedEvent :=
  window LoggedEvent.id f.log f.first f.polling.maxEventId

/-- The IDs grow, and the cursor stands between the start of what is handled and the end of the log. -/
structure Tracked (f : EventFeed) : Prop where
  ordered : Ordered LoggedEvent.id f.log
  started : f.polling.maxEventId = 0 → f.first = 0
  first : f.first ≤ f.polling.maxEventId
  cursor : f.polling.maxEventId ≤ last LoggedEvent.id f.log
  positive : ∀ e ∈ f.log, 0 < e.id

variable {f : EventFeed}

lemma perform_answer (f : EventFeed) (dropped : Nat) :
    f.perform (.answer dropped) =
      let entries := (unread LoggedEvent.id f.log f.polling.maxEventId).drop dropped
      let cursor := advance LoggedEvent.id f.polling.maxEventId entries
      { f with
        polling := ⟨cursor⟩
        first := if f.polling.maxEventId = 0 then cursor else f.first
        handled := f.handled ++ if f.polling.maxEventId = 0 then [] else entries } := rfl

lemma poll_nothing (f : EventFeed) {response : EventsResponse}
    (h : f.polling.getEvents response = (f.polling, []))
    (hfirst : f.polling.maxEventId = 0 → f.first = 0) : f.poll response = f := by
  have hsame : (if f.polling.maxEventId = 0 then f.polling.maxEventId else f.first) = f.first := by
    split_ifs with hzero
    · rw [hzero, hfirst hzero]
    · rfl
  simp [EventFeed.poll, h, hsame]

namespace Tracked

lemma perform_failed (h : Tracked f) :
    f.poll .raised = f ∧ (∀ code, f.poll (.status code) = f) ∧ f.poll .empty = f :=
  ⟨poll_nothing f rfl h.started, fun _ => poll_nothing f rfl h.started, poll_nothing f rfl h.started⟩

lemma log (h : Tracked f) (gap : Nat) (event : SyncthingEvent) :
    Tracked (f.perform (.log gap event)) ∧ span (f.perform (.log gap event)) = span f := by
  have hlast : last LoggedEvent.id f.log < last LoggedEvent.id f.log + gap + 1 := by omega
  refine ⟨⟨h.ordered.append hlast, h.started, h.first, ?_, ?_⟩, window_log h.cursor hlast⟩
  · change f.polling.maxEventId ≤ last LoggedEvent.id (f.log ++ [_])
    rw [last_append]
    exact Nat.le_trans h.cursor (Nat.le_max_left _ _)
  · intro e he
    rcases List.mem_append.1 he with he | he
    · exact h.positive e he
    · rw [List.mem_singleton.1 he]
      exact Nat.succ_pos _

lemma answer (h : Tracked f) (dropped : Nat) : Tracked (f.perform (.answer dropped)) := by
  have hdrop : ∀ e ∈ (unread LoggedEvent.id f.log f.polling.maxEventId).drop dropped,
      e.id ≤ last LoggedEvent.id f.log := fun e he =>
    key_le_last (mem_unread.1 (List.mem_of_mem_drop he)).1
  rw [perform_answer]
  refine ⟨h.ordered, ?_, ?_, advance_le h.cursor hdrop, h.positive⟩
  · intro hzero
    have hbefore : f.polling.maxEventId = 0 :=
      Nat.eq_zero_of_le_zero (Nat.le_trans (le_advance _ _) (Nat.le_of_eq hzero))
    dsimp only at hzero ⊢
    rw [if_pos hbefore]
    exact hzero
  · dsimp only
    split_ifs
    · exact Nat.le_refl _
    · exact Nat.le_trans h.first (le_advance _ _)

lemma perform (h : Tracked f) (event : FeedEvent) {P : EventFeed → Prop} (hP : P f)
    (hlog : ∀ gap event, P (f.perform (.log gap event)))
    (hanswer : ∀ dropped, event = .answer dropped → P (f.perform (.answer dropped))) :
    Tracked (f.perform event) ∧ P (f.perform event) := by
  obtain ⟨hraised, hstatus, hempty⟩ := h.perform_failed
  cases event with
  | log gap event => exact ⟨(h.log gap event).1, hlog gap event⟩
  | raised =>
    change Tracked (f.poll .raised) ∧ P (f.poll .raised)
    rw [hraised]
    exact ⟨h, hP⟩
  | status code =>
    change Tracked (f.poll (.status code)) ∧ P (f.poll (.status code))
    rw [hstatus]
    exact ⟨h, hP⟩
  | empty =>
    change Tracked (f.poll .empty) ∧ P (f.poll .empty)
    rw [hempty]
    exact ⟨h, hP⟩
  | answer dropped => exact ⟨h.answer dropped, hanswer dropped rfl⟩

lemma span_answer (h : Tracked f) (dropped : Nat) :
    (f.handled.Sublist (span f) →
        (f.perform (.answer dropped)).handled.Sublist (span (f.perform (.answer dropped)))) ∧
      (dropped = 0 → f.handled = span f →
        (f.perform (.answer dropped)).handled = span (f.perform (.answer dropped))) := by
  rw [perform_answer]
  by_cases hzero : f.polling.maxEventId = 0
  · -- the first answer is thrown away, and its end becomes the start
    have hnone : span f = [] := by
      rw [span, h.started hzero, hzero]
      exact window_self
    simp only [span, hzero, if_true, List.append_nil, window_self] at hnone ⊢
    rw [hnone]
    exact ⟨id, fun _ hsame => hsame⟩
  · simp only [span, hzero, if_false]
    constructor
    · exact fun hsub => sublist_advance h.ordered h.first hsub dropped
    · intro hall hsame
      subst hall
      rw [hsame, List.drop_zero]
      exact (window_advance h.ordered h.first).symm

end Tracked

lemma tracked_init : Tracked {} :=
  ⟨List.Pairwise.nil, fun _ => rfl, Nat.le_refl _, Nat.le_refl _, fun _ he => absurd he List.not_mem_nil⟩

/-- For every order of logged events and polls, of which any may fail: the events that are handled are
events of the log after those of the first answer, in the order of the log and none twice; and if
Syncthing always has what it is asked for, they are all of these up to the greatest ID seen, and after
a successful poll up to the end of the log. -/
theorem events_handled_once (run : List FeedEvent) :
    Runs.AllStates EventFeed.perform (fun f => f.handled.Sublist (span f)) {} run ∧
      (Runs.AllSteps EventFeed.perform Buffered {} run →
        Runs.AllStates EventFeed.perform (fun f => f.handled = span f) {} run ∧
        Runs.AllSteps EventFeed.perform (fun f event => event = .answer 0 →
          (f.perform event).handled =
            unread LoggedEvent.id (f.perform event).log (f.perform event).first) {} run) := by
  have hlogged : ∀ (f : EventFeed) gap event, (f.perform (.log gap event)).handled = f.handled :=
    fun _ _ _ => rfl
  constructor
  · have hkeep : ∀ (f : EventFeed) event, (Tracked f ∧ f.handled.Sublist (span f)) → True →
        Tracked (f.perform event) ∧ (f.perform event).handled.Sublist (span (f.perform event)) := by
      intro f event h _
      refine h.1.perform event (P := fun f => f.handled.Sublist (span f)) h.2 (fun gap event => ?_)
        fun dropped _ => (h.1.span_answer dropped).1 h.2
      rw [hlogged, (h.1.log gap event).2]
      exact h.2
    have hall : Runs.AllSteps EventFeed.perform (fun _ _ => True) {} run :=
      Runs.allSteps_of_forall (fun _ _ _ => trivial) _
    exact (Runs.allStates_of_invariant hkeep ⟨tracked_init, List.Sublist.refl _⟩ hall).mono
      fun _ h => h.2
  · intro hrun
    have hkeep : ∀ (f : EventFeed) event, (Tracked f ∧ f.handled = span f) → Buffered f event →
        Tracked (f.perform event) ∧ (f.perform event).handled = span (f.perform event) := by
      intro f event h hok
      refine h.1.perform event (P := fun f => f.handled = span f) h.2 (fun gap event => ?_) ?_
      · rw [hlogged, (h.1.log gap event).2]
        exact h.2
      · rintro dropped rfl
        exact (h.1.span_answer dropped).2 hok h.2
    refine ⟨(Runs.allStates_of_invariant hkeep ⟨tracked_init, rfl⟩ hrun).mono fun _ h => h.2, ?_⟩
    refine Runs.allSteps_of_admitted hkeep ?_ ⟨tracked_init, rfl⟩ hrun
    rintro f event h hok rfl
    rw [(hkeep f _ h hok).2, span]
    apply window_last
    intro e he
    have hmember : e ∈ f.log := he
    by_cases hseen : f.polling.maxEventId < e.id
    · exact key_le_advance _ (mem_unread.2 ⟨hmember, hseen⟩)
    · exact Nat.le_trans (Nat.not_lt.1 hseen) (le_advance _ _)

/-- A poll fails between two events that come later than the first answer. -/
theorem events_handled_once_two :
    let run : List FeedEvent := [.log 0 .folderErrors, .answer 0, .log 3 .folderPaused, .raised,
      .log 0 .folderResumed, .answer 0]
    let f := Runs.final EventFeed.perform {} run
    f.handled = span f ∧ f.handled = [⟨5, .folderPaused⟩, ⟨6, .folderResumed⟩] := by
  intro run f
  have hbuffered : Runs.AllSteps EventFeed.perform Buffered {} run :=
    ⟨trivial, rfl, trivial, trivial, trivial, rfl, trivial⟩
  exact ⟨((events_handled_once run).2 hbuffered).1.last, by decide⟩

end PolledEvents

end RenderStudioKit.Proofs

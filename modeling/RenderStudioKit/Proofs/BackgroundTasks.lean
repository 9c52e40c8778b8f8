import RenderStudioKit.Lib.Runs
import RenderStudioKit.Model.BackgroundTask

/-!
# Starting and stopping a background task

Between its locked part and its join a call of `Stop` is open to others: one that starts the task then
ends the process, and one that stops it again returns before the worker has finished. Otherwise there is
one worker at most and none when `Stop` returns, and no wake-up is lost.
-/

namespace RenderStudioKit.Proofs

namespace BackgroundTasks

open BackgroundTask

/-- Every worker has finished. -/
def Still (t : BackgroundTask) : Prop := ∀ stage ∈ t.workers, stage = .finished

/-- A call of `Stop` returns: there is nothing to stop, or its join is over. -/
def Returns (t : BackgroundTask) : TaskEvent → Prop
  | .stop => t.mRunning = false
  | .join i => t.stops[i]? = some .join ∧ (t.join i).stops.length < t.stops.length
  | _ => False

/-- The process lives on, one worker is unfinished at most, and none if a call of `Stop` returns. -/
def Good (t : BackgroundTask) (event : TaskEvent) : Prop :=
  (t.perform event).terminated = false ∧
    (t.perform event).workers.countP (· ≠ .finished) ≤ 1 ∧
      (Returns t event → Still (t.perform event))

/-- Nobody starts the task while it is being stopped, or stops it before the worker has finished. -/
def Apart (t : BackgroundTask) : TaskEvent → Prop
  | .start => t.stops = []
  | .stop => t.stops = [] ∨ Still t
  | _ => True

instance (t : BackgroundTask) : Decidable (Still t) := inferInstanceAs (Decidable (∀ stage ∈ _, _))

instance (t : BackgroundTask) : (event : TaskEvent) → Decidable (Apart t event)
  | .start => inferInstanceAs (Decidable (t.stops = []))
  | .stop => inferInstanceAs (Decidable (t.stops = [] ∨ Still t))
  | .notify _ => .isTrue trivial
  | .join _ => .isTrue trivial
  | .run _ => .isTrue trivial
  | .wake _ _ => .isTrue trivial

/-- The threads before the last one have finished. -/
def crew (n : Nat) (stage : WorkerStage) : List WorkerStage :=
  List.replicate n .finished ++ [stage]

/-- The task does not run, runs on the last thread, or is being stopped. -/
inductive Phase (t : BackgroundTask) : Prop where
  | stopped (n : Nat) (alive : t.terminated = false) (running : t.mRunning = false)
      (thread : t.mThread = none) (stops : t.stops = [])
      (workers : t.workers = List.replicate n .finished)
  | running (n : Nat) (stage : WorkerStage) (alive : t.terminated = false)
      (running : t.mRunning = true) (thread : t.mThread = some n) (stops : t.stops = [])
      (workers : t.workers = crew n stage) (works : stage ≠ .finished)
  | stopping (n : Nat) (stage : WorkerStage) (stop : StopStage) (alive : t.terminated = false)
      (running : t.mRunning = false) (thread : t.mThread = some n) (stops : t.stops = [stop])
      (workers : t.workers = crew n stage) (woken : stop = .join → stage ≠ .waiting)

lemma mem_crew {n : Nat} {stage other : WorkerStage} (h : other ∈ crew n stage) :
    other = .finished ∨ other = stage := by
  rcases List.mem_append.1 h with h | h
  · exact .inl (List.eq_of_mem_replicate h)
  · exact .inr (List.mem_singleton.1 h)

lemma still_crew_iff {t : BackgroundTask} {n : Nat} {stage : WorkerStage}
    (h : t.workers = crew n stage) : Still t ↔ stage = .finished := by
  unfold Still
  rw [h]
  constructor
  · exact fun hall => hall stage (List.mem_append_right _ (List.mem_singleton.2 rfl))
  · rintro rfl other hmem
    exact (mem_crew hmem).elim id id

lemma still_of_replicate {t : BackgroundTask} {n : Nat}
    (h : t.workers = List.replicate n .finished) : Still t := by
  unfold Still
  rw [h]
  exact fun _ hmem => List.eq_of_mem_replicate hmem

lemma countP_crew (n : Nat) (stage : WorkerStage) :
    (crew n stage).countP (· ≠ .finished) ≤ 1 := by
  rw [crew, List.countP_append, List.countP_replicate, List.countP_singleton]
  split_ifs <;> simp_all

lemma crew_get (n : Nat) (stage : WorkerStage) : (crew n stage)[n]? = some stage := by
  simp [crew]

lemma crew_set (n : Nat) (stage stage' : WorkerStage) :
    (crew n stage).set n stage' = crew n stage' := by
  simp [crew]

lemma crew_modify {f : WorkerStage → WorkerStage} (hf : f .finished = .finished) (n worker : Nat)
    (stage : WorkerStage) :
    (crew n stage).modify worker f = crew n (if worker = n then f stage else stage) := by
  apply List.ext_getElem?
  intro i
  rw [List.getElem?_modify]
  rcases Nat.lt_trichotomy i n with hi | rfl | hi
  · have hold : ∀ stage, (crew n stage)[i]? = some .finished := by
      intro stage
      rw [crew, List.getElem?_append_left (by simpa using hi), List.getElem?_replicate, if_pos hi]
    rw [hold, hold]
    split_ifs <;> simp [hf]
  · rw [crew_get, crew_get]
    by_cases hworker : worker = i <;> simp [hworker]
  · have hnone : ∀ stage, (crew n stage)[i]? = none := by
      intro stage
      rw [crew, List.getElem?_eq_none]
      simp
      omega
    rw [hnone, hnone]
    rfl

lemma replicate_modify {f : WorkerStage → WorkerStage} (hf : f .finished = .finished)
    (n worker : Nat) :
    (List.replicate n WorkerStage.finished).modify worker f = List.replicate n .finished := by
  apply List.ext_getElem?
  intro i
  rw [List.getElem?_modify, List.getElem?_replicate]
  split_ifs <;> simp [hf]

lemma notifyOne_crew (n : Nat) (stage : WorkerStage) :
    notifyOne (crew n stage) = crew n (if stage = .waiting then .woken false else stage) := by
  have hbefore : ∀ other ∈ List.replicate n WorkerStage.finished, ¬ decide (other = .waiting) = true := by
    intro other hmem
    simp [List.eq_of_mem_replicate hmem]
  have hfirst : (List.replicate n WorkerStage.finished).findIdx? (· = .waiting) = none :=
    List.findIdx?_eq_none_iff.2 fun other hmem => Bool.eq_false_iff.2 (hbefore other hmem)
  have hfind : (crew n stage).findIdx? (· = .waiting) =
      if stage = .waiting then some n else none := by
    rw [crew, List.findIdx?_append, hfirst]
    by_cases hstage : stage = .waiting <;> simp [hstage, List.findIdx?_cons]
  unfold notifyOne
  rw [hfind]
  split_ifs with hstage
  · exact crew_set n stage _
  · rfl

section

variable {t : BackgroundTask}

lemma next_running {stage : WorkerStage} (h : stage ≠ .finished) : stage.next true ≠ .finished := by
  cases stage with
  | finished => exact absurd rfl h
  | woken timeout => cases timeout <;> simp [WorkerStage.next]
  | isRunning | task | wait | waiting => simp [WorkerStage.next]

lemma wake_unfinished {stage : WorkerStage} (h : stage ≠ .finished) (timeout : Bool) :
    stage.wake timeout ≠ .finished := by
  cases stage <;> simp_all [WorkerStage.wake]

lemma next_stopped {stage : WorkerStage} (h : stage ≠ .waiting) : stage.next false ≠ .waiting := by
  cases stage with
  | waiting => exact absurd rfl h
  | isRunning | task | wait | woken | finished => simp [WorkerStage.next]

lemma wake_woken {stage : WorkerStage} (h : stage ≠ .waiting) (timeout : Bool) :
    stage.wake timeout ≠ .waiting := by
  cases stage <;> simp_all [WorkerStage.wake]

namespace Phase

lemma alive (h : Phase t) : t.terminated = false := by
  cases h <;> assumption

lemma oneWorker (h : Phase t) : t.workers.countP (· ≠ .finished) ≤ 1 := by
  cases h with
  | stopped n _ _ _ _ hworkers =>
    rw [hworkers, List.countP_replicate]
    simp
  | running n stage _ _ _ _ hworkers _ =>
    rw [hworkers]
    exact countP_crew n stage
  | stopping n stage _ _ _ _ _ hworkers _ =>
    rw [hworkers]
    exact countP_crew n stage

lemma modify (h : Phase t) {f : WorkerStage → WorkerStage} (hfinished : f .finished = .finished)
    (hrunning : t.mRunning = true → ∀ stage ≠ .finished, f stage ≠ .finished)
    (hstopped : t.mRunning = false → ∀ stage ≠ .waiting, f stage ≠ .waiting) (worker : Nat) :
    Phase { t with workers := t.workers.modify worker f } := by
  cases h with
  | stopped n halive hrun hthread hstops hworkers =>
    refine .stopped n halive hrun hthread hstops ?_
    rw [hworkers]
    exact replicate_modify hfinished n worker
  | running n stage halive hrun hthread hstops hworkers hworks =>
    refine .running n (if worker = n then f stage else stage) halive hrun hthread hstops ?_ ?_
    · rw [hworkers]
      exact crew_modify hfinished n worker stage
    · split_ifs
      · exact hrunning hrun stage hworks
      · exact hworks
  | stopping n stage stop halive hrun hthread hstops hworkers hwoken =>
    refine .stopping n (if worker = n then f stage else stage) stop halive hrun hthread hstops ?_ ?_
    · rw [hworkers]
      exact crew_modify hfinished n worker stage
    · intro hjoin
      split_ifs
      · exact hstopped hrun stage (hwoken hjoin)
      · exact hwoken hjoin

lemma run (h : Phase t) (worker : Nat) :
    Phase { t with workers := t.workers.modify worker (WorkerStage.next t.mRunning) } := by
  refine h.modify rfl ?_ ?_ worker
  · intro hrun stage hstage
    rw [hrun]
    exact next_running hstage
  · intro hrun stage hstage
    rw [hrun]
    exact next_stopped hstage

lemma wake (h : Phase t) (worker : Nat) (timeout : Bool) :
    Phase { t with workers := t.workers.modify worker (WorkerStage.wake timeout) } :=
  h.modify rfl (fun _ _ hstage => wake_unfinished hstage timeout)
    (fun _ _ hstage => wake_woken hstage timeout) worker

lemma start (h : Phase t) (hapart : t.stops = []) : Phase t.start := by
  unfold BackgroundTask.start
  cases h with
  | stopped n halive hrun hthread hstops hworkers =>
    simp only [hrun, hthread, hworkers, Bool.false_eq_true, if_false, Option.isSome_none,
      List.length_replicate]
    exact .running n .isRunning halive rfl rfl hstops rfl (by simp)
  | running n stage halive hrun hthread hstops hworkers hworks =>
    simp only [hrun, if_true]
    exact .running n stage halive hrun hthread hstops hworkers hworks
  | stopping n stage stop halive hrun hthread hstops hworkers hwoken => simp [hstops] at hapart

lemma stop (h : Phase t) : Phase t.stop := by
  unfold BackgroundTask.stop
  cases h with
  | stopped n halive hrun hthread hstops hworkers =>
    simp only [hrun, Bool.not_false, if_true]
    exact .stopped n halive hrun hthread hstops hworkers
  | running n stage halive hrun hthread hstops hworkers hworks =>
    simp only [hrun, Bool.not_true, Bool.false_eq_true, if_false]
    refine .stopping n stage .notify halive rfl hthread ?_ hworkers (by simp)
    rw [hstops]
    rfl
  | stopping n stage stop halive hrun hthread hstops hworkers hwoken =>
    simp only [hrun, Bool.not_false, if_true]
    exact .stopping n stage stop halive hrun hthread hstops hworkers hwoken

lemma notify (h : Phase t) (i : Nat) : Phase (t.notify i) := by
  unfold BackgroundTask.notify
  split
  · rename_i hstop
    cases h with
    | stopped n halive hrun hthread hstops hworkers => simp [hstops] at hstop
    | running n stage halive hrun hthread hstops hworkers hworks => simp [hstops] at hstop
    | stopping n stage stop halive hrun hthread hstops hworkers hwoken =>
      rw [hstops, List.getElem?_singleton] at hstop
      split_ifs at hstop with hi
      refine .stopping n (if stage = .waiting then .woken false else stage) .join halive hrun
        hthread ?_ ?_ ?_
      · dsimp only
        rw [hstops, hi]
        rfl
      · dsimp only
        rw [hworkers]
        exact notifyOne_crew n stage
      · intro _
        split_ifs with hwaiting
        · simp
        · exact hwaiting
  · exact h

/-- A call of `Stop` ends when the worker has finished, and only then. -/
lemma join_cases (h : Phase t) (i : Nat) :
    t.join i = t ∨ ∃ n, t.stops[i]? = some .join ∧ t.workers = crew n .finished ∧
      t.join i = { t with mThread := none, stops := [] } ∧ t.mRunning = false := by
  cases hstop : t.stops[i]? with
  | none =>
    left
    simp only [BackgroundTask.join, hstop]
  | some stage =>
    cases stage with
    | notify =>
      left
      simp only [BackgroundTask.join, hstop]
    | join =>
      cases h with
      | stopped n _ _ _ hstops _ => simp [hstops] at hstop
      | running n _ _ _ _ hstops _ _ => simp [hstops] at hstop
      | stopping n stage stop halive hrun hthread hstops hworkers hwoken =>
        have hworker : t.workers[n]? = some stage := by
          rw [hworkers]
          exact crew_get n stage
        by_cases hfinished : stage = .finished
        · right
          subst hfinished
          have hi : i = 0 := by
            rw [hstops, List.getElem?_singleton] at hstop
            split_ifs at hstop with hi
            exact hi
          refine ⟨n, rfl, hworkers, ?_, hrun⟩
          simp only [BackgroundTask.join, hstop, hthread, hworker, if_true]
          simp [hstops, hi]
        · left
          simp [BackgroundTask.join, hstop, hthread, hworker, hfinished]

lemma join (h : Phase t) (i : Nat) : Phase (t.join i) := by
  rcases h.join_cases i with heq | ⟨n, -, hworkers, heq, hrun⟩
  · rw [heq]
    exact h
  · rw [heq]
    refine .stopped (n + 1) h.alive hrun rfl rfl ?_
    dsimp only
    rw [hworkers, crew, List.replicate_succ']

lemma perform_eq (h : Phase t) (event : TaskEvent) : t.perform event = t.act event := by
  simp [BackgroundTask.perform, h.alive]

lemma perform (h : Phase t) {event : TaskEvent} (hapart : Apart t event) :
    Phase (t.perform event) := by
  rw [h.perform_eq]
  cases event with
  | start => exact h.start hapart
  | stop => exact h.stop
  | notify i => exact h.notify i
  | join i => exact h.join i
  | run worker => exact h.run worker
  | wake worker timeout => exact h.wake worker timeout

lemma still_of_returns (h : Phase t) {event : TaskEvent} (hapart : Apart t event)
    (hreturns : Returns t event) : Still (t.perform event) := by
  rw [h.perform_eq]
  cases event with
  | start | notify | run | wake => exact hreturns.elim
  | stop =>
    have hrun : t.mRunning = false := hreturns
    have hsame : t.stop = t := by simp [BackgroundTask.stop, hrun]
    change Still t.stop
    rw [hsame]
    rcases hapart with hstops | hstill
    · cases h with
      | stopped n _ _ _ _ hworkers => exact still_of_replicate hworkers
      | running n stage _ hrunning _ _ _ _ => simp [hrun] at hrunning
      | stopping n stage stop _ _ _ hsome _ _ => simp [hsome] at hstops
    · exact hstill
  | join i =>
    obtain ⟨-, hless⟩ := hreturns
    rcases h.join_cases i with heq | ⟨n, -, hworkers, heq, -⟩
    · rw [heq] at hless
      exact absurd hless (Nat.lt_irrefl _)
    · change Still (t.join i)
      rw [heq]
      exact (still_crew_iff hworkers).2 rfl

lemma good_iff (h : Phase t) (event : TaskEvent) : Good t event ↔ Apart t event := by
  constructor
  · rintro ⟨halive, -, hstill⟩
    rw [h.perform_eq] at halive hstill
    cases event with
    | notify | join | run | wake => trivial
    | start =>
      cases h with
      | stopped n _ _ _ hstops _ => exact hstops
      | running n stage _ _ _ hstops _ _ => exact hstops
      | stopping n stage stop _ hrun hthread _ _ _ =>
        simp [BackgroundTask.act, BackgroundTask.start, hrun, hthread] at halive
    | stop =>
      cases h with
      | stopped n _ _ _ hstops _ => exact .inl hstops
      | running n stage _ _ _ hstops _ _ => exact .inl hstops
      | stopping n stage stop _ hrun _ _ _ _ =>
        right
        have hsame : t.stop = t := by simp [BackgroundTask.stop, hrun]
        have hall := hstill hrun
        change Still t.stop at hall
        rwa [hsame] at hall
  · intro hapart
    have hnext := h.perform hapart
    exact ⟨hnext.alive, hnext.oneWorker, h.still_of_returns hapart⟩

end Phase

lemma phase_init : Phase {} := .stopped 0 rfl rfl rfl rfl rfl

end

/-- For every order in which any number of threads call `Start` and `Stop` and the workers run and wait:
the process lives on, at most one worker is unfinished at any time and none when a call of `Stop`
returns, exactly if nobody starts the task while it is being stopped, or stops it before the worker has
finished. -/
theorem stopped_cleanly_iff_apart (run : List TaskEvent) :
    Runs.AllSteps BackgroundTask.perform Good {} run ↔
      Runs.AllSteps BackgroundTask.perform Apart {} run :=
  Runs.allSteps_iff_allSteps (fun _ event h => h.good_iff event)
    (fun _ event h hgood => h.perform ((h.good_iff event).1 hgood)) phase_init

/-- How many steps a worker is from its end once the task was stopped. -/
def distance : WorkerStage → Nat
  | .finished => 0
  | .isRunning => 1
  | .wait => 2
  | .woken _ => 2
  | .task => 3
  | .waiting => 3

lemma distance_next {stage : WorkerStage} (h : stage ≠ .waiting) :
    distance (stage.next false) ≤ distance stage - 1 := by
  cases stage with
  | waiting => exact absurd rfl h
  | isRunning | task | wait | woken | finished => simp [WorkerStage.next, distance]

lemma distance_wake {stage : WorkerStage} (h : stage ≠ .waiting) (timeout : Bool) :
    stage.wake timeout = stage := by
  cases stage with
  | waiting => exact absurd rfl h
  | isRunning | task | wait | woken | finished => rfl

/-- A call of `Stop` that was announced to the worker `n` waits for it. -/
structure Joining (t : BackgroundTask) (n : Nat) (stage : WorkerStage) : Prop where
  alive : t.terminated = false
  running : t.mRunning = false
  thread : t.mThread = some n
  stops : t.stops = [.join]
  workers : t.workers = crew n stage
  woken : stage ≠ .waiting

variable {t : BackgroundTask} {n : Nat} {stage : WorkerStage}

/-- Nothing but the join ends the call, and every turn of the worker brings its end nearer. -/
lemma Joining.step (h : Joining t n stage) {event : TaskEvent} (hapart : Apart t event)
    (hjoin : ∀ i, event ≠ .join i) :
    ∃ stage', Joining (t.perform event) n stage' ∧
      distance stage' ≤ distance stage - if event = .run n then 1 else 0 := by
  have hphase : Phase t :=
    .stopping n stage .join h.alive h.running h.thread h.stops h.workers fun _ => h.woken
  have hmodify : ∀ {f : WorkerStage → WorkerStage} (worker : Nat), f .finished = .finished →
      f stage ≠ .waiting → Joining { t with workers := t.workers.modify worker f } n
        (if worker = n then f stage else stage) := by
    intro f worker hfinished hwaiting
    refine ⟨h.alive, h.running, h.thread, h.stops, ?_, ?_⟩
    · dsimp only
      rw [h.workers]
      exact crew_modify hfinished n worker stage
    · split_ifs
      · exact hwaiting
      · exact h.woken
  rw [hphase.perform_eq]
  cases event with
  | start => exact absurd (h.stops.symm.trans hapart) (List.cons_ne_nil _ _)
  | stop =>
    have hsame : t.act .stop = t := by simp [BackgroundTask.act, BackgroundTask.stop, h.running]
    rw [hsame]
    exact ⟨stage, h, by simp⟩
  | notify i =>
    have hsame : t.act (.notify i) = t := by
      cases i <;> simp [BackgroundTask.act, BackgroundTask.notify, h.stops]
    rw [hsame]
    exact ⟨stage, h, by simp⟩
  | join i => exact absurd rfl (hjoin i)
  | run worker =>
    refine ⟨_, hmodify worker rfl ?_, ?_⟩
    · rw [h.running]
      exact next_stopped h.woken
    · rw [h.running]
      by_cases hworker : worker = n
      · simpa [hworker] using distance_next h.woken
      · simp [hworker]
  | wake worker timeout =>
    refine ⟨_, hmodify worker rfl (wake_woken h.woken timeout), ?_⟩
    rw [distance_wake h.woken]
    simp

lemma Joining.run (h : Joining t n stage) {more : List TaskEvent}
    (hapart : Runs.AllSteps BackgroundTask.perform Apart t more)
    (hjoin : ∀ event ∈ more, ∀ i, event ≠ .join i) :
    ∃ stage', Joining (Runs.final BackgroundTask.perform t more) n stage' ∧
      distance stage' ≤ distance stage - more.count (.run n) := by
  let Near (k : Nat) (t : BackgroundTask) : Prop := ∃ stage, Joining t n stage ∧ distance stage ≤ k
  have hkeep : ∀ k t event, Near k t → Apart t event ∧ (∀ i, event ≠ .join i) →
      Near (if event == .run n then k - 1 else k) (t.perform event) := by
    rintro k t event ⟨stage, hjoining, hdistance⟩ ⟨hstep, hother⟩
    obtain ⟨stage', hjoining', hless⟩ := hjoining.step hstep hother
    refine ⟨stage', hjoining', ?_⟩
    simp only [beq_iff_eq]
    split_ifs at hless ⊢ <;> omega
  have hothers : Runs.AllSteps BackgroundTask.perform (fun _ event => ∀ i, event ≠ .join i) t more :=
    Runs.allSteps_of_forall (fun _ => hjoin) t
  exact Runs.final_of_progress hkeep ⟨stage, h, Nat.le_refl _⟩ (hapart.and hothers)

/-- No wake-up is lost: once a call of `Stop` has come to its join, the worker that it waits for ends
within three of its turns, whatever the other threads do meanwhile without overlapping, and no wait has
to time out for it. Then the join returns. -/
theorem stop_returns (run more : List TaskEvent) (worker : Nat)
    (hapart : Runs.AllSteps BackgroundTask.perform Apart {} (run ++ more))
    (hjoining : (Runs.final BackgroundTask.perform {} run).stops = [.join])
    (hworker : (Runs.final BackgroundTask.perform {} run).mThread = some worker)
    (hmore : ∀ event ∈ more, ∀ i, event ≠ .join i) (hturns : 3 ≤ more.count (.run worker)) :
    let t := Runs.final BackgroundTask.perform {} (run ++ more)
    Still t ∧ Returns t (.join 0) ∧ (t.perform (.join 0)).stops = [] := by
  intro t
  rw [Runs.allSteps_append] at hapart
  have hphase : Phase (Runs.final BackgroundTask.perform {} run) :=
    (Runs.allStates_of_invariant (fun _ _ h hok => h.perform hok) phase_init hapart.1).last
  obtain ⟨stage, hjoins, hnear⟩ : ∃ stage,
      Joining (Runs.final BackgroundTask.perform {} run) worker stage ∧ distance stage ≤ 3 := by
    cases hphase with
    | stopped n _ _ _ hstops _ => simp [hstops] at hjoining
    | running n stage _ _ _ hstops _ _ => simp [hstops] at hjoining
    | stopping n stage stop halive hrun hthread hstops hworkers hwoken =>
      obtain rfl : n = worker := Option.some_inj.1 (hthread.symm.trans hworker)
      obtain rfl : stop = .join := by
        rw [hstops] at hjoining
        exact (List.cons.inj hjoining).1
      refine ⟨stage, ⟨halive, hrun, hthread, hstops, hworkers, hwoken rfl⟩, ?_⟩
      cases stage <;> simp [distance]
  obtain ⟨stage', hjoins', hless⟩ := hjoins.run hapart.2 hmore
  rw [← Runs.final_append] at hjoins'
  have hfinished : stage' = .finished := by
    have hzero : distance stage' = 0 := by omega
    cases stage' <;> first | rfl | cases hzero
  subst hfinished
  have hdone : t.join 0 = { t with mThread := none, stops := [] } := by
    have hget : t.workers[worker]? = some .finished := by
      rw [hjoins'.workers]
      exact crew_get worker _
    simp [BackgroundTask.join, t, hjoins'.stops, hjoins'.thread, hget]
  have hphase' : Phase t := .stopping worker .finished .join hjoins'.alive hjoins'.running
    hjoins'.thread hjoins'.stops hjoins'.workers fun _ => hjoins'.woken
  have hperform : t.perform (.join 0) = t.join 0 := hphase'.perform_eq _
  refine ⟨(still_crew_iff hjoins'.workers).2 rfl, ⟨?_, ?_⟩, ?_⟩
  · exact congrArg (·[0]?) hjoins'.stops
  · rw [hdone, hjoins'.stops]
    exact Nat.zero_lt_one
  · rw [hperform, hdone]

/-- A worker that waits is stopped. -/
theorem stop_returns_waiting :
    let run : List TaskEvent := [.start, .run 0, .run 0, .run 0, .stop, .notify 0]
    let more : List TaskEvent := [.run 0, .wake 0 true, .run 0, .notify 0, .run 0]
    let t := Runs.final BackgroundTask.perform {} run
    let t' := Runs.final BackgroundTask.perform {} (run ++ more)
    t.workers = [.woken false] ∧ Returns t' (.join 0) := by
  intro run more t t'
  exact ⟨rfl, (stop_returns run more 0 (by decide) rfl rfl (by simp [more]) (by decide)).2.1⟩

end BackgroundTasks

end RenderStudioKit.Proofs

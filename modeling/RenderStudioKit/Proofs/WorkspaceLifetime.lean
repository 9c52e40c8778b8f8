import RenderStudioKit.Model.ConnectionManager

/-!
# The lifetime of the workspace service

Every exception of a job ends the service. Two awaits of the jobs let one through while clients are
connected: a send of a broadcast, and the close of a client that its own endpoint removes meanwhile.
-/

namespace RenderStudioKit.Proofs

open ConnectionManager

variable {m : ConnectionManager}

/-- No client was connected at any call of `terminate_all`. -/
def TerminatedIdle (m : ConnectionManager) : Prop := ∀ connected ∈ m.terminated, connected = []

/-- The broadcast raises when it resumes: its send failed, or the clients have changed since it
began and the iterator notices. -/
def Interrupted (b : Broadcast) (d : ActiveConnections) (r : Resumption) : Prop :=
  r.raises = true ∨ d.items.length ≠ b.size ∨ (d.changes ≠ b.changes ∧ r.pick = .raise)

/-- While clients are connected, no broadcast of the poll job is interrupted, and a client that the
other job has closed is still among them. -/
def OutlivesStep (m : ConnectionManager) : WorkspaceAction → Prop
  | .autoPoll r => ∀ b events, m.autoPoll = some (.broadcasting b events) →
      m.activeConnections.keys ≠ [] → ¬Interrupted b m.activeConnections r
  | .autoDisconnect => ∀ websocket rest, m.autoDisconnect = some (.closing websocket rest) →
      m.activeConnections.keys ≠ [] → websocket ∈ m.activeConnections.keys
  | _ => True

lemma resume_eq_raised_iff (b : Broadcast) (d : ActiveConnections) (r : Resumption) :
    b.resume d r = .raised ↔ Interrupted b d r := by
  unfold Broadcast.resume Interrupted
  by_cases hraises : r.raises = true
  · simp [hraises]
  · by_cases hsize : d.items.length ≠ b.size
    · simp [hraises, hsize]
    · rw [if_neg hraises, if_neg hsize]
      by_cases hchanges : d.changes = b.changes
      · cases hrest : b.rest <;> simp [hraises, hsize, hchanges]
      · cases hpick : r.pick <;> simp [hraises, hsize, hchanges]

lemma del_eq_none_iff (d : ActiveConnections) (websocket : WebSocket) :
    d.del websocket = none ↔ websocket ∉ d.keys := by
  unfold ActiveConnections.del
  split <;> simp_all

lemma keys_eq_nil_iff (d : ActiveConnections) : d.keys = [] ↔ d.items.isEmpty = true := by
  simp [ActiveConnections.keys]

@[simp] lemma setEndpoint_terminated (websocket : WebSocket) (endpoint : Endpoint) :
    (m.setEndpoint websocket endpoint).terminated = m.terminated := rfl

@[simp] lemma terminateAll_terminated :
    m.terminateAll.terminated = m.terminated ++ [m.activeConnections.keys] := rfl

@[simp] lemma connect_terminated (websocket : WebSocket) :
    (m.connect websocket).terminated = m.terminated := by
  unfold connect
  dsimp only
  split <;> rfl

@[simp] lemma receiveText_terminated (websocket : WebSocket) (text : String) :
    (m.receiveText websocket text).terminated = m.terminated := by
  unfold receiveText
  dsimp only
  split <;> rfl

@[simp] lemma disconnectNext_terminated (rest : List WebSocket) :
    (m.disconnectNext rest).terminated = m.terminated := by
  cases rest <;> rfl

@[simp] lemma record_terminated (event : SyncthingEvent) :
    (m.record event).terminated = m.terminated := by
  cases event <;> rfl

@[simp] lemma handleEvents_terminated (events : List SyncthingEvent) :
    (m.handleEvents events).terminated = m.terminated := by
  induction events generalizing m with
  | nil => rfl
  | cons event events ih =>
    unfold handleEvents
    dsimp only
    split
    · exact record_terminated event
    · split
      · rw [ih, record_terminated]
      · exact record_terminated event

lemma TerminatedIdle.of_eq {m' : ConnectionManager} (h : TerminatedIdle m)
    (hcalls : m'.terminated = m.terminated) : TerminatedIdle m' := by
  unfold TerminatedIdle
  rw [hcalls]
  exact h

lemma terminatedIdle_call_iff {m' : ConnectionManager} (h : TerminatedIdle m)
    (hcalls : m'.terminated = m.terminated ++ [m.activeConnections.keys]) :
    TerminatedIdle m' ↔ m.activeConnections.keys = [] := by
  unfold TerminatedIdle at h ⊢
  rw [hcalls]
  constructor
  · intro hall
    exact hall _ (by simp)
  · intro hkeys connected hmem
    rcases List.mem_append.1 hmem with hmem | hmem
    · exact h connected hmem
    · rw [List.mem_singleton.1 hmem, hkeys]

/-- An endpoint calls `terminate_all` only after it has seen that no client is left. -/
lemma TerminatedIdle.resumeEndpoint (h : TerminatedIdle m) (websocket : WebSocket)
    (r : Resumption) : TerminatedIdle (m.resumeEndpoint websocket r) := by
  unfold ConnectionManager.resumeEndpoint
  cases hendpoint : m.endpoints.lookup websocket with
  | none => exact h
  | some endpoint =>
    cases endpoint with
    | accepting =>
      dsimp only
      split
      · exact h
      · exact h.of_eq (connect_terminated websocket)
    | broadcasting b summary =>
      dsimp only
      split <;> exact h
    | receiving =>
      dsimp only
      split
      · exact h
      · split
        · exact h
        · exact h.of_eq (receiveText_terminated websocket _)
    | configuring => exact h
    | closing =>
      dsimp only
      split <;> exact h
    | sleeping =>
      dsimp only
      split
      · rename_i hempty
        exact (terminatedIdle_call_iff h rfl).2 ((keys_eq_nil_iff _).2 hempty)
      · exact h
    | terminating => exact h
    | ended => exact h

/-- The job that disconnects clients calls `terminate_all` with clients connected exactly when the
one it has closed is no longer among them. -/
lemma resumeAutoDisconnect_idle_iff (h : TerminatedIdle m) (settings : WorkspaceSettings) :
    TerminatedIdle (m.resumeAutoDisconnect settings) ↔ OutlivesStep m .autoDisconnect := by
  unfold ConnectionManager.resumeAutoDisconnect OutlivesStep
  cases hjob : m.autoDisconnect with
  | none => simpa using h
  | some job =>
    cases job with
    | waiting => simpa using h.of_eq (disconnectNext_terminated _)
    | closing websocket rest =>
      dsimp only
      cases hdel : m.activeConnections.del websocket with
      | none =>
        have hmissing := (del_eq_none_iff _ _).1 hdel
        refine (terminatedIdle_call_iff h rfl).trans ⟨?_, ?_⟩
        · intro hkeys _ _ _ hne
          exact absurd hkeys hne
        · intro hstep
          by_contra hne
          exact hmissing (hstep websocket rest rfl hne)
      | some d =>
        refine iff_of_true (h.of_eq rfl) ?_
        intro websocket' rest' hclosing _
        obtain ⟨rfl, rfl⟩ := AutoDisconnect.closing.inj (Option.some.inj hclosing)
        by_contra hmissing
        rw [(del_eq_none_iff _ _).2 hmissing] at hdel
        exact absurd hdel (by simp)
    | sleeping rest =>
      refine iff_of_true ?_ (by simp)
      dsimp only
      split
      · rename_i hempty
        exact (terminatedIdle_call_iff h rfl).2 ((keys_eq_nil_iff _).2 hempty)
      · exact h.of_eq (disconnectNext_terminated rest)
    | terminating => simpa using h

/-- The poll job calls `terminate_all` with clients connected exactly when a broadcast is
interrupted. -/
lemma resumeAutoPoll_idle_iff (h : TerminatedIdle m) (r : Resumption) :
    TerminatedIdle (m.resumeAutoPoll r) ↔ OutlivesStep m (.autoPoll r) := by
  unfold ConnectionManager.resumeAutoPoll OutlivesStep
  cases hjob : m.autoPoll with
  | none => simpa using h
  | some job =>
    cases job with
    | waiting => exact iff_of_true (h.of_eq rfl) (by simp)
    | requesting => simpa using h.of_eq (handleEvents_terminated r.events)
    | broadcasting b events =>
      have hresume := resume_eq_raised_iff b m.activeConnections r
      dsimp only
      cases hnext : b.resume m.activeConnections r with
      | raised =>
        have hinterrupted := hresume.1 hnext
        refine (terminatedIdle_call_iff h rfl).trans ⟨?_, ?_⟩
        · intro hkeys _ _ _ hne
          exact absurd hkeys hne
        · intro hstep
          by_contra hne
          exact hstep b events rfl hne hinterrupted
      | finished =>
        refine iff_of_true (h.of_eq (handleEvents_terminated events)) ?_
        intro b' events' hbroadcasting _ hinterrupted
        obtain ⟨rfl, rfl⟩ := AutoPoll.broadcasting.inj (Option.some.inj hbroadcasting)
        rw [hresume.2 hinterrupted] at hnext
        exact absurd hnext (by simp)
      | sending b' =>
        refine iff_of_true (h.of_eq rfl) ?_
        intro b' events' hbroadcasting _ hinterrupted
        obtain ⟨rfl, rfl⟩ := AutoPoll.broadcasting.inj (Option.some.inj hbroadcasting)
        rw [hresume.2 hinterrupted] at hnext
        exact absurd hnext (by simp)
    | configuring calls events =>
      refine iff_of_true ?_ (by simp)
      cases calls with
      | zero => exact h.of_eq (handleEvents_terminated events)
      | succ calls => exact h.of_eq rfl
    | terminating => simpa using h

/-- The condition on a step of the service, which takes none once the process has ended. -/
def Outlives (m : ConnectionManager) (action : WorkspaceAction) : Prop :=
  m.exited = false → OutlivesStep m action

lemma perform_idle_iff (h : TerminatedIdle m) (settings : WorkspaceSettings)
    (action : WorkspaceAction) :
    TerminatedIdle (perform settings m action) ↔ Outlives m action := by
  unfold perform Outlives
  by_cases hexited : m.exited = true
  · simpa [hexited] using h
  · rw [Bool.not_eq_true] at hexited
    simp only [hexited, Bool.false_eq_true, if_false, forall_const]
    cases action with
    | request websocket =>
      refine iff_of_true ?_ trivial
      dsimp only
      split <;> exact h
    | endpoint websocket r => exact iff_of_true (h.resumeEndpoint websocket r) trivial
    | autoDisconnect => exact resumeAutoDisconnect_idle_iff h settings
    | autoPoll r => exact resumeAutoPoll_idle_iff h r
    | tick seconds => exact iff_of_true h trivial
    | terminate =>
      refine iff_of_true ?_ trivial
      dsimp only
      split <;> exact h
    | exit => exact iff_of_true h trivial

lemma init_idle (settings : WorkspaceSettings) : TerminatedIdle (.init settings) := by
  unfold ConnectionManager.init
  split <;> simp [TerminatedIdle]

/-- In a run of the service `terminate_all` is called only without clients exactly when no job
resumes with clients connected from a broadcast that was interrupted, or from closing a client that
has been removed meanwhile. -/
theorem terminated_idle_iff (settings : WorkspaceSettings) (run : List WorkspaceAction) :
    Runs.AllStates (perform settings) TerminatedIdle (.init settings) run ↔
      Runs.AllSteps (perform settings) Outlives (.init settings) run := by
  have hkeep : ∀ m action, TerminatedIdle m → Outlives m action →
      TerminatedIdle (perform settings m action) :=
    fun _ action h hstep => (perform_idle_iff h settings action).2 hstep
  have hbreak : ∀ m action, TerminatedIdle m → ¬Outlives m action →
      ¬TerminatedIdle (perform settings m action) :=
    fun _ action h hstep hidle => hstep ((perform_idle_iff h settings action).1 hidle)
  exact Runs.allStates_iff_allSteps (fun _ h => h) hkeep hbreak (init_idle settings)

section

/-- Two clients are connected. -/
def sampleClients : List WorkspaceAction :=
  [.request 1, .endpoint 1 {}, .request 2, .endpoint 2 {}]

/-- The send of an event to the first client fails. -/
def failedSend : List WorkspaceAction :=
  sampleClients ++
    [.autoPoll {}, .autoPoll { events := [.folderPaused] }, .autoPoll { raises := true }]

/-- The first client does not ping for eleven seconds. It disconnects while the job closes it. -/
def lateRemoval : List WorkspaceAction :=
  sampleClients ++ [.tick 11, .endpoint 2 {}, .autoDisconnect, .endpoint 1 { text := none },
    .endpoint 1 {}, .autoDisconnect]

/-- Both runs end the service while a client is connected. -/
theorem terminated_with_clients :
    ¬Runs.AllStates (perform ⟨10, false⟩) TerminatedIdle (.init ⟨10, false⟩) failedSend ∧
      ¬Runs.AllStates (perform ⟨10, false⟩) TerminatedIdle (.init ⟨10, false⟩) lateRemoval := by
  have hsend : (Runs.final (perform ⟨10, false⟩) (.init ⟨10, false⟩) failedSend).terminated =
      [[1, 2]] := by decide
  have hlate : (Runs.final (perform ⟨10, false⟩) (.init ⟨10, false⟩) lateRemoval).terminated =
      [[2]] := by decide
  refine ⟨fun h => ?_, fun h => ?_⟩
  · exact absurd (h.last [1, 2] (by simp [hsend])) (by simp)
  · exact absurd (h.last [2] (by simp [hlate])) (by simp)

end

end RenderStudioKit.Proofs
